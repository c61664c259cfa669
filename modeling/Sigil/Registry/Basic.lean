import Sigil.Fault
import Sigil.Statement.Basic
import Sigil.Table

/-!
Host functions, gathered in modules. A registry holds the modules that a program can call; a loader
fills those that it includes. A catalog is a loader that keeps under each name how to set up a module.
The module `program` is known from the start.
-/
namespace Sigil

inductive Arity where
  | fixed (count : Nat)
  | variadic (minimum : Nat)
  deriving DecidableEq, Repr

def Arity.check (arity : Arity) (module name : Text) (received : Nat) : Except Fault Unit :=
  match arity with
  | fixed count =>
    if count = received then .ok () else .error (.arityMismatch module name count received)
  | variadic minimum =>
    if minimum ≤ received then .ok () else .error (.tooFewArguments module name minimum received)

structure HostFunction (ω : Type) where
  arity : Arity
  call : List Value → ω → Except Text Value × ω

abbrev Module (ω : Type) := Table (HostFunction ω)

/-- Fills a module with the functions kept under a name, and tells whether there is such a name. -/
abbrev Loader (ω : Type) := Text → Module ω → Bool × Module ω

abbrev Catalog (ω : Type) := Table (Module ω → Module ω)

namespace Catalog
variable {ω : Type}

def empty : Catalog ω := Table.empty

def load (catalog : Catalog ω) : Loader ω := fun name functions =>
  match catalog.get? name with
  | some setup => (true, setup functions)
  | none => (false, functions)

end Catalog

structure Registry (ω : Type) where
  modules : Table (Module ω)

namespace Registry
variable {ω : Type}

def initial : Registry ω := ⟨Table.empty.insert Call.defaultModule Table.empty⟩

def module (registry : Registry ω) (name : Text) : Module ω :=
  (registry.modules.get? name).getD Table.empty

def register (registry : Registry ω) (module name : Text) (function : HostFunction ω) : Registry ω :=
  ⟨registry.modules.insert module ((registry.module module).insert name function)⟩

def hasModule (registry : Registry ω) (module : Text) : Bool := registry.modules.contains module

def moduleNames (registry : Registry ω) : List Text := registry.modules.names

def includeModule (registry : Registry ω) (loader : Loader ω) (module : Text) : Except Fault Unit × Registry ω :=
  let (found, functions) := loader module (registry.module module)
  let modules :=
    if found || !functions.isEmpty || module == Call.defaultModule then registry.modules.insert module functions
    else registry.modules.erase module
  (if found then .ok () else .error (.moduleNotFound module), ⟨modules⟩)

def resolve (registry : Registry ω) (module name : Text) : Except Fault (HostFunction ω) :=
  match registry.modules.get? module with
  | none => .error (.unknownModule module)
  | some functions =>
    match functions.get? name with
    | none => .error (.unknownFunction module name)
    | some function => .ok function

end Registry
end Sigil
