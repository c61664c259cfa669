import Sigil.Numeral

/-!
How deep calls may be nested inside the arguments of calls: at least one level.
-/
namespace Sigil

structure Settings where
  maxCallDepth : Nat := 64
  positive : 0 < maxCallDepth := by decide

namespace Settings

def default : Settings := {}

def depthVariable : String := "SICL_MAX_CALL_DEPTH"

def withDepth (depth : Nat) : Settings := ⟨max depth 1, by omega⟩

def ofEnvironment (value : Option Text) : Settings :=
  match value.bind fun text => Numeral.readCount text.trim with
  | some depth => if positive : 0 < depth then ⟨depth, positive⟩ else default
  | none => default

end Settings
end Sigil
